import Mathlib
import WorkerGen.Proofs.Files.Path
import WorkerGen.Proofs.Worker.Linking

/-!
# Where the files of a worker are put

`Placed` says that the files of a worker stay where they belong: their paths are names below the
output directory, wherever that is, and no two lead to the same place.  `placed_after_compile` says
that they do so after every compilation that succeeds, whatever the ids and paths of the description
are.  An id may be a text that means something else as a path, such as `...` or `~`; it is the
ending behind it that makes it a name like any other.

Paths are compared by their steps, so that two texts for one place would count as one.  The steps of
a file below an output directory are those of the directory and then those of the file
(`Path.steps_join`), for every output directory.
-/

namespace WorkerGen

/-- Whether a path consists of names only, at least one. -/
structure Path.IsBelow (p : Path) : Prop where
  nonempty : p.steps ≠ []
  names : ∀ s ∈ p.steps, ∃ name, s = .name name

namespace Worker

/-! ## Names of files

Global files have names that are fixed, and the files of handlers have a directory of their own, so
that the two never meet. -/

lemma isName_globalFile (file : GlobalFile) : Path.IsName file.name := by
  cases file <;> constructor <;> decide

lemma isName_handlers : Path.IsName "handlers" := by constructor <;> decide

/-- The name of the file of a handler is the name of an entry. -/
lemma isName_handlerFile {id : String} (h : isPlainFileName id = true) :
    Path.IsName (id ++ ".js") := by
  obtain ⟨-, hslash⟩ := of_isPlainFileName h
  have hends : ∀ s : String, s.toList.getLast? ≠ some 's' → id ++ ".js" ≠ s := by
    rintro s hs rfl
    exact hs (by simp [String.toList_append])
  refine ⟨hends "" (by decide), hends "." (by decide), hends ".." (by decide), ?_⟩
  rw [String.toList_append, List.mem_append]
  rintro (hmem | hmem)
  · exact hslash hmem
  · exact absurd hmem (by decide)

lemma handlerPath_eq_join (id : String) :
    target.handlerPath id = (Path.mk "handlers").join ⟨id ++ ".js"⟩ := by
  have hend : ".js" = "." ++ "js" := by decide
  rw [hend, ← String.append_assoc]
  rfl

/-- The file of a handler is two names below the output directory. -/
lemma steps_handlerPath {id : String} (h : isPlainFileName id = true) :
    (target.handlerPath id).steps = [.name "handlers", .name (id ++ ".js")] := by
  have hname := isName_handlerFile h
  rw [handlerPath_eq_join, Path.steps_join hname.isAbsolute hname.start, isName_handlers.steps,
    hname.steps, List.singleton_append]

lemma isAbsolute_handlerPath {id : String} (h : isPlainFileName id = true) :
    (target.handlerPath id).isAbsolute = false := by
  rw [handlerPath_eq_join, Path.isAbsolute_join (isName_handlerFile h).isAbsolute,
    isName_handlers.isAbsolute]

lemma start_handlerPath {id : String} (h : isPlainFileName id = true) :
    (target.handlerPath id).start = [] := by
  rw [handlerPath_eq_join, Path.start_join (isName_handlerFile h).isAbsolute (by decide),
    isName_handlers.start]

/-! ## Placed files -/

/-- Whether the files of a worker with some handlers are put where they belong. -/
structure Placed (handlers : List Handler) (files : List OutputFile) : Prop where
  /-- The global files come first, then the files of the handlers in their order. -/
  order : files.map (·.path) = GlobalFile.all.map (fun file => ⟨file.name⟩) ++
    handlers.map fun h => target.handlerPath h.id
  globals : ∀ file ∈ GlobalFile.all, (Path.mk file.name).steps = [.name file.name]
  handlers : ∀ h ∈ handlers, (target.handlerPath h.id).text = "handlers/" ++ h.id ++ ".js" ∧
    (target.handlerPath h.id).steps = [.name "handlers", .name (h.id ++ ".js")]
  /-- Every file is strictly below the output directory, whatever that is. -/
  below : ∀ f ∈ files, f.path.IsBelow ∧
    ∀ base : Path, (base.join f.path).steps = base.steps ++ f.path.steps
  /-- No file is put in the place of another. -/
  distinct : (files.map fun f => f.path.steps).Nodup

/-- **The files of a worker are put where they belong**, if the ids of its handlers are plain and
distinct. -/
theorem placed_of_ids {config : Config} {routes : List Route} {handlers : List Handler}
    (hplain : ∀ h ∈ handlers, isPlainFileName h.id = true) (hnodup : (handlers.map (·.id)).Nodup) :
    Placed handlers (globalFiles config routes ++ handlers.map handlerFile) := by
  have horder : (globalFiles config routes ++ handlers.map handlerFile).map (·.path)
      = GlobalFile.all.map (fun file => ⟨file.name⟩) ++
        handlers.map fun h => target.handlerPath h.id := by
    rw [List.map_append, globalFiles, List.map_map, List.map_map]
    rfl
  have hglobal : ∀ file : GlobalFile, (Path.mk file.name).steps = [.name file.name] :=
    fun file => (isName_globalFile file).steps
  have hhandler : ∀ h ∈ handlers,
      (target.handlerPath h.id).steps = [.name "handlers", .name (h.id ++ ".js")] :=
    fun h hh => steps_handlerPath (hplain h hh)
  refine ⟨horder, fun file _ => hglobal file, fun h hh => ⟨?_, hhandler h hh⟩, fun f hf => ?_, ?_⟩
  · rw [text_handlerPath (hplain h hh)]
    simp [String.append_assoc]
  · have hpath := horder ▸ List.mem_map_of_mem (f := OutputFile.path) hf
    rcases List.mem_append.mp hpath with hpath | hpath
    · obtain ⟨file, -, hfile⟩ := List.mem_map.mp hpath
      have hname := isName_globalFile file
      rw [← hfile]
      exact ⟨⟨by simp [hglobal], by simp [hglobal]⟩,
        fun base => Path.steps_join hname.isAbsolute hname.start⟩
    · obtain ⟨h, hh, hfile⟩ := List.mem_map.mp hpath
      have hid := hplain h hh
      rw [← hfile]
      exact ⟨⟨by simp [hhandler h hh], by simp [hhandler h hh]⟩,
        fun base => Path.steps_join (isAbsolute_handlerPath hid) (start_handlerPath hid)⟩
  · have hsteps :
        ((globalFiles config routes ++ handlers.map handlerFile).map fun f => f.path.steps)
          = GlobalFile.all.map (fun file => [PathStep.name file.name]) ++
            handlers.map fun h => [PathStep.name "handlers", .name (h.id ++ ".js")] := by
      have hmap :
          ((globalFiles config routes ++ handlers.map handlerFile).map fun f => f.path.steps)
            = _ := List.map_map.symm.trans (congrArg (List.map Path.steps) horder)
      rw [hmap, List.map_append, List.map_map, List.map_map]
      exact congrArg₂ _ (List.map_congr_left fun file _ => hglobal file)
        (List.map_congr_left hhandler)
    have hids :
        (handlers.map fun h => [PathStep.name "handlers", .name (h.id ++ ".js")]).Nodup := by
      have hinj : Function.Injective fun id => [PathStep.name "handlers", .name (id ++ ".js")] := by
        intro s t heq
        simpa using heq
      simpa [List.map_map, Function.comp_def] using hnodup.map hinj
    rw [hsteps, List.nodup_append]
    refine ⟨by decide, hids, fun s hs t ht heq => ?_⟩
    obtain ⟨file, -, rfl⟩ := List.mem_map.mp hs
    obtain ⟨h, -, rfl⟩ := List.mem_map.mp ht
    exact absurd heq (by simp)

/-- **After a compilation that succeeds all files are put where they belong**, with one file for
each handler of the description. -/
theorem placed_after_compile {config : Config} {declared : Bool} {c : Compilation}
    (hcompile : ((Compilation.new config).declare declared).compile = .ok c) :
    ∃ routes handlers files, c.routes = some routes ∧ c.handlers = some handlers ∧
      handlers = Handler.ofApi config.api ∧ target.render c.config routes handlers = .ok files ∧
        Placed handlers files := by
  have hcompiled := Compilation.compiled_of_runPhases hcompile
  have hrender := render_of_compiled hcompiled
  exact ⟨_, _, _, hcompiled.routes, hcompiled.handlers, rfl, hrender,
    placed_of_ids hcompiled.isPlainFileName hcompiled.nodup_ids⟩

theorem placed_after_compile_collision : ∃ routes handlers files,
    target.render collision routes handlers = .ok files ∧ Placed handlers files ∧
      files.map (·.path.text) = ["index.js", "router.js", "db.js", "keys.js", "files.js",
        "support.js", "handlers/a-b.js", "handlers/a_b.js"] := by
  have hcompile : ((Compilation.new collision).declare true).compile = .ok
      ⟨collision, true, some (Handler.ofApi collision.api),
        some (Route.table collision.api (Handler.ofApi collision.api)), []⟩ := rfl
  obtain ⟨routes, handlers, files, -, -, rfl, hrender, hplaced⟩ := placed_after_compile hcompile
  refine ⟨routes, _, files, hrender, hplaced, ?_⟩
  have htexts := congrArg (List.map Path.text) hplaced.order
  rw [List.map_map] at htexts
  exact htexts.trans (by decide)

end Worker

end WorkerGen
