import Mathlib
import WorkerGen.Proofs.Compile.Table
import WorkerGen.Proofs.Worker.Rendering
import WorkerGen.Proofs.Worker.RouterText

/-!
# Routers and the files that they import

A router and the files of the handlers are written apart from each other.  `Linked` says that they
fit together, and `linked_after_compile` that they do so after every compilation that succeeds: the
ids of handlers are then plain and distinct, so that each names one file, and the name of an import
holds the place of its route, so that no two are the same even where the ids are.

What the router says is taken from its text.  Its imports and the fields of its table are read back
line by line, and the module of an import is decoded from its literal, so that `Linked` is a
statement about what somebody who reads the file finds there.  What a module stands for is the path
of a file (`moduleOf`), and among the files of the worker there is one with that path.
-/

namespace WorkerGen

open Text

/-! ## Plain file names

An id that is accepted is a name without slashes, so that the path of its file, and the module under
which that is imported, give the id back. -/

/-- A plain file name is not empty and holds no slash. -/
lemma of_isPlainFileName {s : String} (h : isPlainFileName s = true) :
    s.toList ≠ [] ∧ '/' ∉ s.toList := by
  simp only [isPlainFileName, Bool.and_eq_true, List.all_eq_true] at h
  obtain ⟨⟨⟨hempty, -⟩, -⟩, hall⟩ := h
  refine ⟨by simpa using hempty, fun hslash => ?_⟩
  simpa using hall '/' hslash

/-- In a list with distinct keys, the elements with the key of an element are that element. -/
lemma filter_eq_singleton_of_key {α β : Type} [BEq β] [LawfulBEq β] {key : α → β} {k : β} :
    ∀ {s : List α} {a : α}, (s.map key).Nodup → a ∈ s → key a = k → s.filter (key · == k) = [a]
  | b :: s, a, hnodup, hmem, hk => by
      rw [List.map_cons, List.nodup_cons] at hnodup
      obtain ⟨hnew, hrest⟩ := hnodup
      rw [List.filter_cons]
      rcases List.mem_cons.mp hmem with rfl | hmem
      · have hnone : s.filter (key · == k) = [] := by
          refine List.filter_eq_nil_iff.mpr fun b hb => ?_
          rw [beq_iff_eq, ← hk]
          exact fun heq => hnew (List.mem_map.mpr ⟨b, hb, heq⟩)
        rw [if_pos (beq_iff_eq.mpr hk), hnone]
      · have hne : ¬(key b == k) = true := by
          rw [beq_iff_eq, ← hk]
          exact fun heq => hnew (List.mem_map.mpr ⟨a, hmem, heq.symm⟩)
        rw [if_neg hne]
        exact filter_eq_singleton_of_key hrest hmem hk

lemma join_of_relative {p q : Path} (hp : p.text.isEmpty = false)
    (hend : p.text.toList.getLast? ≠ some '/') (hq : q.isAbsolute = false) :
    p.join q = ⟨p.text ++ "/" ++ q.text⟩ := by
  rw [Path.join, hq, hp, Bool.or_self, if_neg Bool.false_ne_true, if_neg hend]

namespace Worker

/-- The module under which a router imports the file at a path. -/
def moduleOf (path : Path) : String := "./" ++ path.text

/-- The path of the file of a handler, as it is written. -/
lemma text_handlerPath {id : String} (h : isPlainFileName id = true) :
    (target.handlerPath id).text = "handlers" ++ "/" ++ (id ++ "." ++ "js") := by
  have hdirectory : Target.handlersDir.text.isEmpty = false ∧
      Target.handlersDir.text.toList.getLast? ≠ some '/' := by
    simp [Target.handlersDir]
  have hrelative : Path.isAbsolute ⟨id ++ "." ++ target.extension⟩ = false := by
    obtain ⟨hne, hslash⟩ := of_isPlainFileName h
    obtain ⟨c, rest, hid⟩ := List.exists_cons_of_ne_nil hne
    rw [hid] at hslash
    have hc : c ≠ '/' := fun heq => hslash (heq ▸ List.mem_cons_self)
    simp [Path.isAbsolute, hid, hc]
  rw [Target.handlerPath, join_of_relative hdirectory.1 hdirectory.2 hrelative]
  rfl

lemma modulePath_eq {id : String} (h : isPlainFileName id = true) :
    modulePath id = moduleOf (target.handlerPath id) := by
  have hstart : "./handlers/" = "./" ++ ("handlers" ++ "/") := by decide
  have hend : ".js" = "." ++ "js" := by decide
  unfold modulePath moduleOf
  rw [text_handlerPath h, hstart, hend]
  simp only [String.append_assoc]

lemma modulePath_inj {s t : String} (h : modulePath s = modulePath t) : s = t := by
  have htext := congrArg String.toList h
  unfold modulePath at htext
  simp only [String.toList_append, List.append_assoc, List.append_cancel_left_eq,
    List.append_cancel_right_eq] at htext
  exact String.toList_injective htext

lemma handlerOf?_eq_handler {r : Route} (h : ∀ id ∈ r.handler, isPlainFileName id = true) :
    handlerOf? r = r.handler := by
  rw [handlerOf?]
  cases hr : r.handler with
  | none => rfl
  | some id =>
      have hne := (of_isPlainFileName (h id hr)).1
      rw [Option.filter_some, if_pos]
      simpa [← String.toList_eq_nil_iff] using hne

/-! ## Imports

The name of an import is made of the place of its route and of its id.  Ids may become the same when
they are made into identifiers; places do not. -/

lemma imports_router_zipIdx (routes : List Route) : imports (router routes)
    = routes.zipIdx.filterMap fun p => importOf? p.2 p.1 := by
  rw [imports_router, List.mapIdx_eq_zipIdx_map, List.filterMap_map]
  rfl

lemma mem_imports {routes : List Route} {e : String × String} :
    e ∈ imports (router routes) ↔ ∃ index route id, routes[index]? = some route ∧
      handlerOf? route = some id ∧ e = (importName index id, modulePath id) := by
  rw [imports_router_zipIdx, List.mem_filterMap]
  constructor
  · rintro ⟨⟨route, index⟩, hmem, he⟩
    obtain ⟨id, hid, rfl⟩ := Option.map_eq_some_iff.mp he
    exact ⟨index, route, id, List.mem_zipIdx_iff_getElem?.mp hmem, hid, rfl⟩
  · rintro ⟨index, route, id, hget, hid, rfl⟩
    exact ⟨(route, index), List.mem_zipIdx_iff_getElem?.mpr hget, by rw [importOf?, hid]; rfl⟩

/-- **No two imports have the same name**, whatever the ids are. -/
theorem nodup_names (routes : List Route) : ((imports (router routes)).map (·.1)).Nodup := by
  have hindex : routes.zipIdx.Pairwise fun p q => p.2 ≠ q.2 := by
    rw [← List.pairwise_map]
    exact List.nodup_zipIdx_map_snd routes
  rw [imports_router_zipIdx, List.Nodup, List.pairwise_map, List.pairwise_filterMap]
  refine hindex.imp fun {p q} hne e he f hf heq => hne ?_
  obtain ⟨id, -, rfl⟩ := Option.map_eq_some_iff.mp he
  obtain ⟨id', -, rfl⟩ := Option.map_eq_some_iff.mp hf
  exact (importName_eq_iff.mp heq).1

/-- The modules that a router imports, in the order of the table. -/
lemma map_snd_imports (routes : List Route) :
    (imports (router routes)).map (·.2) = (routes.filterMap handlerOf?).map modulePath := by
  have hmodule : ∀ p : Route × ℕ,
      (importOf? p.2 p.1).map (·.2) = (handlerOf? p.1).map modulePath := by
    intro p
    rw [importOf?, Option.map_map]
    rfl
  have hfst : routes.zipIdx.map Prod.fst = routes := List.zipIdx_map_fst 0 routes
  rw [imports_router_zipIdx, List.map_filterMap, List.map_filterMap]
  simp only [hmodule]
  conv_rhs => rw [← hfst]
  rw [List.filterMap_map]
  rfl

/-! ## Links

For every operation with steps the word in the table is the name of one import, the import is of one
module, and the module is one file, which is that of the handler.  Each of the three is a step from
a list with distinct keys to its one element with a key. -/

/-- The entry at an index of a router leads to the file of a handler: it has a name of its own,
there is one import under this name, and what that imports is the path of one file, which is that of
the handler. -/
structure LeadsTo (text : String) (files : List OutputFile) (index : ℕ) (h : Handler) : Prop where
  entry : (fields .handler text)[index]? = some (importName index h.id)
  link : (imports text).filter (·.1 == importName index h.id)
    = [(importName index h.id, moduleOf (handlerFile h).path)]
  file : files.filter (·.path == (handlerFile h).path) = [handlerFile h]

/-- A router and the files of the handlers fit together. -/
structure Linked (api : Api) (routes : List Route) (handlers : List Handler)
    (files : List OutputFile) (text : String) : Prop where
  /-- Every operation has a route, which is passed through if the operation has no steps. -/
  operations : ∀ path method operation, (path, method, operation) ∈ api.operations →
    ∃ route ∈ routes, route.path = path ∧ route.method = method ∧
      (route.handler = none ↔ operation.steps = none)
  nodup : (routes.map fun r => (r.path, r.method)).Nodup
  /-- The table has an entry for each route, in order. -/
  methods : fields .method text = routes.map fun r => quote r.method.upperName
  paths : fields .path text = routes.map fun r => quote r.path
  length : (fields .handler text).length = routes.length
  passthrough : ∀ (index : ℕ) (route : Route), routes[index]? = some route →
    route.handler = none → (fields .handler text)[index]? = some "null"
  /-- A route with a handler leads to the file of the handler of its path and method. -/
  handler : ∀ (index : ℕ) (route : Route) (id : String), routes[index]? = some route →
    route.handler = some id → ∃ h, h.id = id ∧ LeadsTo text files index h ∧
      handlers.filter (fun g => (g.path, g.method) == (route.path, route.method)) = [h]
  identifiers : ∀ e ∈ imports text, IsIdentifier e.1
  distinct : ((imports text).map (·.1)).Nodup
  /-- The files of all handlers are imported, each once. -/
  modules : ((imports text).map (·.2)).Perm (handlers.map fun h => moduleOf (handlerFile h).path)
  once : ((imports text).map (·.2)).Nodup
  count : handlers.length + routes.countP Route.isPassthrough = routes.length

variable {api : Api} {config : Config} {routes : List Route} {files : List OutputFile}

lemma handlerOf?_of_mem_table
    (hplain : ∀ h ∈ Handler.ofApi api, isPlainFileName h.id = true) {route : Route}
    (hroute : route ∈ Route.table api (Handler.ofApi api)) : handlerOf? route = route.handler := by
  refine handlerOf?_eq_handler fun id hid => ?_
  obtain ⟨h, hmem, rfl, -, -⟩ := exists_handler_of_mem_table hroute hid
  exact hplain h hmem

/-! ### What a router and the files have

Each part of `Linked` is about the router of a description or about the files of its handlers, and
is shown here under the condition that ids are plain and distinct. -/

/-- **No two files of a worker have the same path**, if the ids of its handlers are plain and
distinct. -/
theorem nodup_paths {handlers : List Handler} (hplain : ∀ h ∈ handlers, isPlainFileName h.id = true)
    (hnodup : (handlers.map (·.id)).Nodup) :
    ((globalFiles config routes ++ handlers.map handlerFile).map (·.path)).Nodup := by
  have hglobals : (globalFiles config routes).map (·.path)
      = GlobalFile.all.map fun file => ⟨file.name⟩ := by
    rw [globalFiles, List.map_map]
    rfl
  have hhandlers : (handlers.map handlerFile).map (·.path)
      = (handlers.map (·.id)).map target.handlerPath := by
    rw [List.map_map, List.map_map]
    rfl
  have hnames : (GlobalFile.all.map fun file => (⟨file.name⟩ : Path)).Nodup := by decide
  have hslash : ∀ file : GlobalFile, '/' ∉ file.name.toList := by
    intro file
    cases file <;> simp [GlobalFile.name]
  rw [List.map_append, hglobals, hhandlers, List.nodup_append]
  refine ⟨hnames, hnodup.map_on ?_, ?_⟩
  · intro s hs t ht heq
    obtain ⟨g, hg, rfl⟩ := List.mem_map.mp hs
    obtain ⟨h, hh, rfl⟩ := List.mem_map.mp ht
    refine modulePath_inj ?_
    rw [modulePath_eq (hplain g hg), modulePath_eq (hplain h hh), heq]
  · intro p hp q hq heq
    obtain ⟨file, -, rfl⟩ := List.mem_map.mp hp
    obtain ⟨id, hid, rfl⟩ := List.mem_map.mp hq
    obtain ⟨h, hh, rfl⟩ := List.mem_map.mp hid
    have hname : file.name = "handlers" ++ "/" ++ (h.id ++ "." ++ "js") :=
      (congrArg Path.text heq).trans (text_handlerPath (hplain h hh))
    refine hslash file ?_
    rw [hname]
    simp

/-- No two handlers are for the same path and method. -/
lemma nodup_handlers (hnodup : ((Handler.ofApi api).map (·.id)).Nodup) :
    ((Handler.ofApi api).map fun h => (h.path, h.method)).Nodup := by
  refine hnodup.of_map.map_on fun g hg h hh heq => ?_
  exact handler_unique hg hh (Prod.mk.inj heq).1 (Prod.mk.inj heq).2

/-- The modules that the router of a description imports are the files of its handlers. -/
lemma modules_router (hplain : ∀ h ∈ Handler.ofApi api, isPlainFileName h.id = true) :
    ((imports (router (Route.table api (Handler.ofApi api)))).map (·.2)).Perm
      ((Handler.ofApi api).map fun h => moduleOf (handlerFile h).path) := by
  have hids : (Route.table api (Handler.ofApi api)).filterMap handlerOf?
      = (Route.table api (Handler.ofApi api)).filterMap (·.handler) :=
    List.filterMap_congr fun route hroute => handlerOf?_of_mem_table hplain hroute
  have hmodules : ((Handler.ofApi api).map (·.id)).map modulePath
      = (Handler.ofApi api).map fun h => moduleOf (handlerFile h).path := by
    rw [List.map_map]
    exact List.map_congr_left fun h hh => modulePath_eq (hplain h hh)
  rw [map_snd_imports, hids, ← hmodules]
  exact (filterMap_handler_table api).map modulePath

lemma router_mem_globalFiles (config : Config) (routes : List Route) :
    ⟨⟨GlobalFile.router.name⟩, router routes⟩ ∈ globalFiles config routes :=
  List.mem_map.mpr ⟨.router, by decide, rfl⟩

/-- The entry of a route with an index holds the word for its handler. -/
lemma getElem?_fields_handler (index : ℕ) (routes : List Route) :
    (fields .handler (router routes))[index]? = routes[index]?.map (handlerWord index) := by
  rw [fields_router, List.getElem?_mapIdx]
  rfl

lemma handlerWord_of_some (index : ℕ) {route : Route} {id : String}
    (h : handlerOf? route = some id) : handlerWord index route = importName index id := by
  unfold handlerWord
  rw [h]

lemma handlerWord_of_none (index : ℕ) {route : Route} (h : handlerOf? route = none) :
    handlerWord index route = "null" := by
  unfold handlerWord
  rw [h]

lemma map_fields {field : RouteField} {value : Route → String}
    (hvalue : ∀ index route, field.value index route = value route) (routes : List Route) :
    fields field (router routes) = routes.map value := by
  simp only [fields_router, hvalue, List.mapIdx_eq_zipIdx_map]
  conv_rhs => rw [← List.zipIdx_map_fst 0 routes]
  rw [List.map_map]
  rfl

/-- The route of a handler leads to its file. -/
lemma leadsTo_of_mem (hplain : ∀ h ∈ Handler.ofApi api, isPlainFileName h.id = true)
    (hnodup : ((Handler.ofApi api).map (·.id)).Nodup) {index : ℕ} {route : Route} {h : Handler}
    (hget : (Route.table api (Handler.ofApi api))[index]? = some route)
    (hid : route.handler = some h.id) (hmem : h ∈ Handler.ofApi api) :
    LeadsTo (router (Route.table api (Handler.ofApi api)))
      (globalFiles config routes ++ (Handler.ofApi api).map handlerFile) index h := by
  have hhandler : handlerOf? route = some h.id := by
    rw [handlerOf?_of_mem_table hplain (List.mem_of_getElem? hget), hid]
  constructor
  · rw [getElem?_fields_handler, hget, Option.map_some, handlerWord_of_some index hhandler]
  · have hmodule : moduleOf (handlerFile h).path = modulePath h.id :=
      (modulePath_eq (hplain h hmem)).symm
    have himport : (importName index h.id, moduleOf (handlerFile h).path)
        ∈ imports (router (Route.table api (Handler.ofApi api))) :=
      mem_imports.mpr ⟨index, route, h.id, hget, hhandler, by rw [hmodule]⟩
    have hnames := nodup_names (Route.table api (Handler.ofApi api))
    exact filter_eq_singleton_of_key hnames himport rfl
  · have hfile := List.mem_append_right (globalFiles config routes)
      (List.mem_map_of_mem (f := handlerFile) hmem)
    exact filter_eq_singleton_of_key (nodup_paths hplain hnodup) hfile rfl

/-! ### Compilations

A compilation that succeeds has checked the ids, and that is all that is needed of it. -/

/-- **A router fits the files of the handlers**, if the ids of the handlers are plain and
distinct. -/
theorem linked_of_ids (hplain : ∀ h ∈ Handler.ofApi api, isPlainFileName h.id = true)
    (hnodup : ((Handler.ofApi api).map (·.id)).Nodup) :
    Linked api (Route.table api (Handler.ofApi api)) (Handler.ofApi api)
      (globalFiles config routes ++ (Handler.ofApi api).map handlerFile)
      (router (Route.table api (Handler.ofApi api))) where
  operations := by
    intro path method operation hmem
    refine ⟨_, mem_table.mpr ⟨_, hmem, rfl⟩, rfl, rfl, ?_⟩
    simp [routeOf, Route.new, Handler.ofOperation?]
  nodup := nodup_table api
  methods := map_fields (fun _ _ => rfl) _
  paths := map_fields (fun _ _ => rfl) _
  length := by rw [fields_router, List.length_mapIdx]
  passthrough := by
    intro index route hget hnone
    have hhandler := handlerOf?_of_mem_table hplain (List.mem_of_getElem? hget)
    rw [hnone] at hhandler
    rw [getElem?_fields_handler, hget, Option.map_some, handlerWord_of_none index hhandler]
  handler := by
    intro index route id hget hid
    obtain ⟨h, hmem, rfl, hpath, hmethod⟩ :=
      exists_handler_of_mem_table (List.mem_of_getElem? hget) hid
    refine ⟨h, rfl, leadsTo_of_mem hplain hnodup hget hid hmem, ?_⟩
    rw [← hpath, ← hmethod]
    exact filter_eq_singleton_of_key (nodup_handlers hnodup) hmem rfl
  identifiers := by
    intro e he
    obtain ⟨index, route, id, -, -, rfl⟩ := mem_imports.mp he
    exact isIdentifier_importName index id
  distinct := nodup_names _
  modules := modules_router hplain
  once := by
    have hmodules : (Handler.ofApi api).map (fun h => moduleOf (handlerFile h).path)
        = ((Handler.ofApi api).map (·.id)).map modulePath := by
      rw [List.map_map]
      exact List.map_congr_left fun h hh => (modulePath_eq (hplain h hh)).symm
    rw [(modules_router hplain).nodup_iff, hmodules]
    exact hnodup.map fun _ _ => modulePath_inj
  count := length_ofApi_add_passthrough api

/-- **After a compilation that succeeds the router links every operation to its own file.** -/
theorem linked_after_compile {config : Config} {declared : Bool} {c : Compilation}
    (hcompile : ((Compilation.new config).declare declared).compile = .ok c) :
    ∃ routes handlers files text, c.routes = some routes ∧ c.handlers = some handlers ∧
      target.render c.config routes handlers = .ok files ∧
      files.filter (·.path == ⟨GlobalFile.router.name⟩) = [⟨⟨GlobalFile.router.name⟩, text⟩] ∧
      Linked config.api routes handlers files text := by
  have hcompiled := Compilation.compiled_of_runPhases hcompile
  have hplain := hcompiled.isPlainFileName
  have hnodup := hcompiled.nodup_ids
  refine ⟨_, _, _, _, hcompiled.routes, hcompiled.handlers, render_of_compiled hcompiled, ?_,
    linked_of_ids hplain hnodup⟩
  have hrouter := List.mem_append_left ((Handler.ofApi config.api).map handlerFile)
    (router_mem_globalFiles c.config (Route.table config.api (Handler.ofApi config.api)))
  exact filter_eq_singleton_of_key (nodup_paths hplain hnodup) hrouter rfl

/-- A worker with two handlers whose ids are made into the same identifier, and with an operation
that is passed through. -/
def collision : Config :=
  { (default : Config) with
    bindings := Manifest.empty
    api := { Api.empty with
      paths := .set (.set (.set .empty "/b/\x7bid\x7d" (.set .empty .get
          ⟨some "a-b", none,
            some [⟨none, some "x", .fetch "https://x.test" "GET" .empty none⟩], none⟩))
        "/a" (.set .empty .get
          ⟨some "a_b", none,
            some [⟨none, some "y", .fetch "https://y.test" "GET" .empty none⟩], none⟩))
        "/c" (.set .empty .get ⟨none, none, none, none⟩) } }

theorem linked_after_compile_collision : ∃ routes handlers files text,
    target.render collision routes handlers = .ok files ∧
      Linked collision.api routes handlers files text := by
  have hcompile : ((Compilation.new collision).declare true).compile = .ok
      ⟨collision, true, some (Handler.ofApi collision.api),
        some (Route.table collision.api (Handler.ofApi collision.api)), []⟩ := rfl
  obtain ⟨routes, handlers, files, text, -, -, hrender, -, hlinked⟩ := linked_after_compile hcompile
  exact ⟨routes, handlers, files, text, hrender, hlinked⟩

end Worker

end WorkerGen
