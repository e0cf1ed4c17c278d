import Mathlib
import WorkerGen.Project.Build
import WorkerGen.Proofs.Build.Emission
import WorkerGen.Proofs.Build.Success
import WorkerGen.Proofs.Worker.Placement

/-!
# Checks, previews and builds of a project

A project is compiled in the same way whether it is checked, previewed or built, so the three fail
with the same error.  If they do not, all files can be rendered, and a build can only fail to write
them.  `agree_of_loaded` says this, that a check and a preview change nothing but the log, and that
a build that succeeds leaves the files of the preview.

The last part does not hold where a build in place keeps what stood at the output
(`not_as_previewed_missingName`).

The three are scripts, and each is brought into the form of a compilation, which asks for nothing,
followed by what is done with it.  A check and a preview only log after that, so that they have one
result in every world and whatever is refused.  A build goes on to write, and what it leaves is what
replacing an output leads to.  What a preview lists is compared with the tree itself, file by file
and place by place (`Build.Holds`), and not with what the build was given.
-/

namespace WorkerGen

open FileTree Script

namespace Build

/-- Whether the files of a tree are some files, each at its path.  There are no links. -/
structure Holds (files : List OutputFile) (t : FileTree) : Prop where
  file : ∀ l content, t.label? l = some (.file content) ↔
    ∃ f ∈ files, f.path.way = l ∧ f.content.toUTF8 = content
  link : ∀ l target, t.label? l ≠ some (.link target)

/-- Of files at different places, the one at a location. -/
lemma fileAt?_eq_some_iff {files : List OutputFile} {l : Location} {f : OutputFile}
    (hnodup : (files.map (·.path.way)).Nodup) :
    fileAt? files l = some f ↔ f ∈ files ∧ f.path.way = l := by
  constructor
  · intro hat
    have hway := List.find?_some hat
    exact ⟨List.mem_reverse.mp (List.mem_of_find?_eq_some hat), by simpa using hway⟩
  · rintro ⟨hf, rfl⟩
    cases hat : fileAt? files f.path.way with
    | none =>
        have hnone := List.find?_eq_none.mp hat f (List.mem_reverse.mpr hf)
        exact absurd (decide_eq_true rfl) hnone
    | some g =>
        have hway := List.find?_some hat
        have hmem := List.mem_reverse.mp (List.mem_of_find?_eq_some hat)
        rw [List.inj_on_of_nodup_map hnodup hmem hf (by simpa using hway)]

/-- The build of files at different places holds them all. -/
lemma IsBuild.holds {files : List OutputFile} {t : FileTree} (h : IsBuild files t)
    (hnodup : (files.map (·.path.way)).Nodup) : Holds files t := by
  refine ⟨fun l content => ?_, fun l target => ?_⟩
  · rw [h l, expected]
    constructor
    · intro hfile
      cases hat : fileAt? files l with
      | none =>
          rw [hat] at hfile
          dsimp only at hfile
          split_ifs at hfile
          exact absurd hfile (by simp)
      | some f =>
          rw [hat] at hfile
          obtain ⟨hf, hway⟩ := (fileAt?_eq_some_iff hnodup).mp hat
          exact ⟨f, hf, hway, by simpa using hfile⟩
    · rintro ⟨f, hf, hway, rfl⟩
      rw [(fileAt?_eq_some_iff hnodup).mpr ⟨hf, hway⟩]
  · rw [h l]
    exact expected_ne_link target

end Build

namespace Worker

/-- The files of a worker are inside of its output directory, at different places. -/
lemma isInside_and_nodup {config : Config} {routes : List Route} {handlers : List Handler}
    {files : List OutputFile} (hplain : ∀ h ∈ handlers, isPlainFileName h.id = true)
    (hplaced : Placed handlers files) (hrender : target.render config routes handlers = .ok files) :
    (∀ f ∈ files, f.path.IsInside) ∧ (files.map (·.path.way)).Nodup := by
  have hnames : target.IsPlain handlers := by
    refine ⟨fun name hname => ?_, fun h hh => ?_⟩
    · obtain ⟨file, -, rfl⟩ := List.mem_map.mp hname
      exact isName_globalFile file
    · have hend : ".js" = "." ++ "js" := by decide
      have hname := isName_handlerFile (hplain h hh)
      rwa [hend, ← String.append_assoc] at hname
  have hsteps : ∀ f ∈ files, f.path.steps = f.path.way.map PathStep.name := by
    intro f hf
    have hpath := hplaced.order ▸ List.mem_map_of_mem (f := OutputFile.path) hf
    rcases List.mem_append.mp hpath with hpath | hpath
    · obtain ⟨file, -, hfile⟩ := List.mem_map.mp hpath
      have hname := isName_globalFile file
      rw [← hfile, hname.steps, hname.way, List.map_singleton]
    · obtain ⟨h, hh, hfile⟩ := List.mem_map.mp hpath
      have hname := isName_handlerFile (hplain h hh)
      rw [← hfile, steps_handlerPath (hplain h hh), handlerPath_eq_join,
        Path.way_join hname.isAbsolute, hname.way, isName_handlers.way]
      rfl
  refine ⟨hnames.isInside hrender, List.Nodup.of_map (List.map PathStep.name) ?_⟩
  rw [List.map_map]
  exact (List.map_congr_left hsteps) ▸ hplaced.distinct

end Worker

/-! ## What is said about a project

`Agree` has a case for each of the ways in which the three can come out together, with all that they
share in it: the diagnostics, the numbers of routes and handlers, and the files. -/

/-- Whether a report of a check says the same as one of a build. -/
structure CheckReport.Matches (r : CheckReport) (b : BuildReport) : Prop where
  apiPath : r.apiPath = b.apiPath
  warnings : r.warnings = b.warnings
  routeCount : r.routeCount = b.routeCount

/-- Whether a check has passed and agrees with a preview. -/
structure CheckReport.Passes (r : CheckReport) (preview : Built) (files : List OutputFile) :
    Prop where
  valid : r.isValid = true
  same : r.Matches preview.report
  result : preview.report.result = .preview files
  /-- The files of the handlers come last, in the order of the check. -/
  paths : files.map (·.path) = Worker.GlobalFile.all.map (fun file => ⟨file.name⟩) ++
    r.handlers.map Worker.target.handlerPath
  nodup : (files.map (·.path.way)).Nodup

namespace Project

/-- Whether a check, a preview and a build agree. -/
inductive Agree :
    Except CheckError CheckReport → Except BuildError Built → Except BuildError Built → Prop
  /-- All have failed to compile the project. -/
  | failed (e : CompileError) : Agree (.error ⟨e⟩) (.error (.compile e)) (.error (.compile e))
  /-- Only the files cannot be written. -/
  | unwritten {r : CheckReport} {preview : Built} {files : List OutputFile} (e : WriteError)
      (passes : r.Passes preview files) : Agree (.ok r) (.ok preview) (.error (.emit (.write e)))
  | written {r : CheckReport} {preview built : Built} {files : List OutputFile} {emitted : Emitted}
      (passes : r.Passes preview files) (same : r.Matches built.report)
      (result : built.report.result = .written emitted)
      (paths : emitted.files = files.map (·.path)) (handlers : emitted.handlers = r.handlers) :
      Agree (.ok r) (.ok preview) (.ok built)

/-! ## Compiled projects

The reports are functions of what has been loaded and of its compilation, so that a report is known
before any script is run. -/

/-- What a check reports about a project that has been compiled. -/
def checkReport (l : Loaded) (c : Compilation) : CheckReport where
  apiPath := l.apiPath
  errors := c.descriptions .error
  warnings := c.descriptions .warning
  infos := c.descriptions .info
  handlers := (c.handlers.getD []).map (·.id)
  routeCount := (c.routes.getD []).length

/-- A project that has been compiled and built, with some result. -/
def builtWith (l : Loaded) (c : Compilation) (result : BuildResult) : Built where
  report :=
    { apiPath := l.apiPath
      workerName := c.config.bindings.name
      apiTitle := c.config.api.info.title
      apiVersion := c.config.api.info.version
      warnings := c.descriptions .warning
      routeCount := (c.routes.getD []).length
      passthroughCount := (c.routes.getD []).countP Route.isPassthrough
      result }
  config := c.config

/-- What a build comes to once its files have been emitted, or not. -/
def emittedWith (l : Loaded) (c : Compilation) : Except EmitError Emitted → Except BuildError Built
  | .ok emitted => .ok (builtWith l c (.written emitted))
  | .error e => .error (.emit e)

section
variable {l : Loaded} {c : Compilation} {e : CompileError} {output : Path}
  {strategy : WriteStrategy} {files : List OutputFile}

/-- **What a project that compiles leads to**: a check that passes, and files that can be rendered,
which are inside of the output directory. -/
lemma passes_of_compile (h : (Compilation.ofLoaded l).compile = .ok c) :
    ∃ files, Worker.target.render c.config (c.routes.getD []) (c.handlers.getD []) = .ok files ∧
      (checkReport l c).Passes (builtWith l c (.preview files)) files ∧
        ∀ f ∈ files, f.path.IsInside := by
  obtain ⟨hcompiled, herrors⟩ := Compilation.compiled_and_errors_of_runPhases h
  have hrender := Worker.render_of_compiled hcompiled
  have hplain := hcompiled.isPlainFileName
  have hplaced : Worker.Placed (Handler.ofApi l.config.api) (Worker.globalFiles c.config
      (Route.table l.config.api (Handler.ofApi l.config.api)) ++
        (Handler.ofApi l.config.api).map Worker.handlerFile) :=
    Worker.placed_of_ids hplain hcompiled.nodup_ids
  obtain ⟨hinside, hnodup⟩ := Worker.isInside_and_nodup hplain hplaced hrender
  have hhandlers : c.handlers.getD [] = Handler.ofApi l.config.api := by
    rw [hcompiled.handlers]
    rfl
  have hroutes : c.routes.getD [] = Route.table l.config.api (Handler.ofApi l.config.api) := by
    rw [hcompiled.routes]
    rfl
  have herrors' : c.descriptions .error = c.errors.map Diagnostic.description := rfl
  refine ⟨_, ?_, ⟨?_, ⟨rfl, rfl, rfl⟩, rfl, ?_, hnodup⟩, hinside⟩
  · rw [hhandlers, hroutes]
    exact hrender
  · rw [CheckReport.isValid, checkReport, herrors', herrors]
    rfl
  · rw [hplaced.order, checkReport, hhandlers, List.map_map]
    rfl

/-! ### The three scripts

Each script is rewritten once, for a compilation that fails and for one that does not. -/

lemma run_check : (check l).run = log (compileLog l) >>= fun _ =>
    .done (match (Compilation.ofLoaded l).compile with
      | .ok c => .ok (checkReport l c)
      | .error e => .error ⟨e⟩) := by
  rw [check, ExceptT.run_bind_lift, inspect]
  cases (Compilation.ofLoaded l).compile <;> rfl

lemma run_build_of_error {options : BuildOptions}
    (h : (Compilation.ofLoaded l).compile = .error e) :
    (build l options).run = log (compileLog l) >>= fun _ => .done (.error (.compile e)) := by
  rw [build, ExceptT.run_bind_lift, h]
  rfl

lemma run_preview (h : (Compilation.ofLoaded l).compile = .ok c)
    (hrender : Worker.target.render c.config (c.routes.getD []) (c.handlers.getD []) = .ok files) :
    (build l ⟨output, true, strategy⟩).run = log (compileLog l) >>= fun _ =>
      .done (.ok (builtWith l c (.preview files))) := by
  rw [build, ExceptT.run_bind_lift, h]
  dsimp only
  rw [produce, if_pos rfl, hrender]
  rfl

lemma run_build (h : (Compilation.ofLoaded l).compile = .ok c) :
    (build l ⟨output, false, strategy⟩).run = log (compileLog l) >>= fun _ =>
      (Build.emit Worker.target strategy output c.config (c.routes.getD [])
        (c.handlers.getD [])).run >>= fun result => .done (emittedWith l c result) := by
  rw [build, ExceptT.run_bind_lift, h]
  dsimp only
  rw [produce, if_neg Bool.false_ne_true]
  refine congrArg _ (funext fun _ => ?_)
  rw [ExceptT.run_bind, ExceptT.run_bind_lift, bind_assoc]
  refine congrArg _ (funext ?_)
  rintro (e | emitted) <;> rfl

/-! ### Running them

A check and a preview are run on any world, with any refusals.  A build is run on a world in which
the output can be replaced, where nothing is refused if it is to succeed. -/

/-- A script that only logs has one result, whatever is refused, and changes only the log. -/
lemma runRefusing_log_then {α : Type} (events : List LogEvent) (a : α)
    (refuses : ℕ → Option IoFault) (w : World) : ∃ entries,
      (log events >>= fun _ => .done a).runRefusing refuses 0 w
        = (a, { w with log := entries }) := by
  obtain ⟨after, hafter⟩ := runRefusing_bind refuses (log events) 0 w (β := α)
  obtain ⟨entries, hentries⟩ := Build.runRefusing_log refuses events 0 w
  refine ⟨entries, ?_⟩
  rw [(hafter fun _ => .done a).1, hentries]
  rfl

/-- A build of a project that compiles ends with all files written, or one that cannot be. -/
lemma returns_build (h : (Compilation.ofLoaded l).compile = .ok c)
    (hrender : Worker.target.render c.config (c.routes.getD []) (c.handlers.getD []) = .ok files) :
    (build l ⟨output, false, strategy⟩).run.Returns fun result =>
      result = .ok (builtWith l c (.written
        ⟨output, files.map (·.path), (c.handlers.getD []).map (·.id)⟩)) ∨
      ∃ e, result = .error (.emit (.write e)) := by
  rw [run_build h, Build.run_emit hrender]
  refine (returns_trivial _).bind fun _ _ => Returns.bind (P := fun result =>
    result = .ok ⟨output, files.map (·.path), (c.handlers.getD []).map (·.id)⟩ ∨
      ∃ e, result = .error (.write e)) ?_ ?_
  · refine (returns_trivial _).bind ?_
    rintro (e | u) -
    · exact .inr ⟨e, rfl⟩
    · exact (returns_trivial _).bind fun _ _ => .inl rfl
  · rintro result (rfl | ⟨e, rfl⟩)
    · exact .inl rfl
    · exact .inr ⟨e, rfl⟩

/-- A build of a project that succeeds replaces what stood at the output by the rendered files. -/
lemma ensures_build {base : Location} {name : String} {r : FileTree}
    (h : (Compilation.ofLoaded l).compile = .ok c)
    (hrender : Worker.target.render c.config (c.routes.getD []) (c.handlers.getD []) = .ok files)
    (hends : output.EndsIn name) (hbase : ∀ name ∈ base, Path.IsName name ∧ isLong name = false)
    (hstart : r.IsDir (startOf base output)) (hclear : Build.IsClear base output name r)
    (hinside : ∀ f ∈ files, f.path.IsInside)
    (hlink : output.endsWithSlash = true → ∀ D,
      r.Reaches (startOf base output) output.way.dropLast D →
        ∀ target, r.at? (D ++ [name]) ≠ some (.link target)) :
    Ensures (fun _ => False) base (fun _ => True) (build l ⟨output, false, strategy⟩).run 0 r
      fun result _ r' => (∃ b, result = .ok b) →
        ∃ D r₁, Build.Rebuilt files base output name D r r₁ r' := by
  rw [run_build h, Build.run_emit hrender]
  refine Ensures.bind (ensures_log trivial) fun _ n r' hn _ hsame => ?_
  obtain rfl : n = 0 := le_zero_iff.mp hn
  rw [hsame]
  refine Ensures.bind (M := fun result _ r' => (∃ a, result = .ok a) →
    ∃ D r₁, Build.Rebuilt files base output name D r r₁ r') ?_ ?_
  · refine Ensures.bind (Build.ensures_write hends hbase hstart hclear hinside hlink) ?_
    rintro (e | u) m r' - - hwritten
    · exact ensures_done trivial fun hok => absurd hok (by simp)
    · refine Ensures.bind (ensures_log trivial) fun _ k r'' _ _ hsame => ?_
      rw [hsame]
      exact ensures_done trivial fun _ => hwritten rfl
  · rintro (e | a) m r' - - hemitted
    · exact ensures_done trivial fun hok => absurd hok (by simp [emittedWith])
    · exact ensures_done trivial fun _ => hemitted ⟨a, rfl⟩

end

/-! ## Agreement

A project that does not compile fails in the same way three times.  One that does has its check and
its preview by now, and what is left is the build. -/

/-- **Checks, previews and builds of a project agree.**  The first two have one result in every
world and change only its log.  A build of the same project fails with the same error, or to write a
file; if it succeeds, the files of the preview are at its output and no others, whatever stood
there. -/
theorem agree_of_loaded (l : Loaded) (output : Path) (strategy : WriteStrategy) :
    ∃ checked previewed,
      (∀ refuses w, ∃ entries,
        (check l).run.runRefusing refuses 0 w = (checked, { w with log := entries })) ∧
      (∀ refuses w, ∃ entries, (build l ⟨output, true, strategy⟩).run.runRefusing refuses 0 w
        = (previewed, { w with log := entries })) ∧
      (∀ refuses w, Agree checked previewed
        ((build l ⟨output, false, strategy⟩).run.runRefusing refuses 0 w).1) ∧
      ∀ w name built w', w.IsSound → output.EndsIn name →
        Build.IsClear w.workDir output name w.files →
        (output.endsWithSlash = true → ∀ D, w.IsIn output D →
          ∀ target, w.files.at? (D ++ [name]) ≠ some (.link target)) →
        (build l ⟨output, false, strategy⟩).run.run w = (.ok built, w') →
          ∃ preview files t, previewed = .ok preview ∧ preview.report.result = .preview files ∧
            w'.standing output = some t ∧ Build.Holds files t := by
  cases hcompile : (Compilation.ofLoaded l).compile with
  | error e =>
      have hcheck := run_check (l := l)
      rw [hcompile] at hcheck
      have hbuild : ∀ options, (build l options).run
          = log (compileLog l) >>= fun _ => .done (.error (.compile e)) :=
        fun options => run_build_of_error hcompile
      have hagree : ∀ refuses w, Agree (.error ⟨e⟩) (.error (.compile e))
          ((build l ⟨output, false, strategy⟩).run.runRefusing refuses 0 w).1 := by
        intro refuses w
        obtain ⟨entries, hrun⟩ := runRefusing_log_then (compileLog l)
          (Except.error (BuildError.compile e) : Except BuildError Built) refuses w
        rw [hbuild, hrun]
        exact .failed e
      refine ⟨.error ⟨e⟩, .error (.compile e), fun refuses w => ?_, fun refuses w => ?_, hagree,
        fun w name built w' _ _ _ _ hrun => ?_⟩
      · rw [hcheck]
        exact runRefusing_log_then _ _ refuses w
      · rw [hbuild]
        exact runRefusing_log_then _ _ refuses w
      · have hfailed := hagree (fun _ => none) w
        rw [runRefusing_none, hrun] at hfailed
        cases hfailed
  | ok c =>
      obtain ⟨files, hrender, hpasses, hinside⟩ := passes_of_compile hcompile
      have hcheck := run_check (l := l)
      rw [hcompile] at hcheck
      refine ⟨.ok (checkReport l c), .ok (builtWith l c (.preview files)), fun refuses w => ?_,
        fun refuses w => ?_, fun refuses w => ?_,
        fun w name built w' hw hends hclear hlink hrun => ?_⟩
      · rw [hcheck]
        exact runRefusing_log_then _ _ refuses w
      · rw [run_preview hcompile hrender]
        exact runRefusing_log_then _ _ refuses w
      · rcases (returns_build hcompile hrender :
          (build l ⟨output, false, strategy⟩).run.Returns _).runRefusing refuses 0 w
          with hok | ⟨e, herror⟩
        · rw [hok]
          exact .written hpasses ⟨rfl, rfl, rfl⟩ rfl rfl rfl
        · rw [herror]
          exact .unwritten e hpasses
      · have hensures : Ensures (fun _ => False) w.workDir (fun _ => True)
            (build l ⟨output, false, strategy⟩).run 0 w.files _ :=
          ensures_build hcompile hrender hends hw.names (hw.isDir_start output) hclear hinside hlink
        obtain ⟨hon, -, hpost⟩ := hensures.run hw.isOn
        rw [hrun] at hon hpost
        obtain ⟨D, r₁, hrebuilt⟩ := hpost ⟨built, rfl⟩
        obtain ⟨t, ht, hbuild⟩ := hrebuilt.standing hinside
        refine ⟨_, files, t, rfl, rfl, ?_, hbuild.holds hpasses.nodup⟩
        rw [World.standing, hon.workDir]
        exact ht

/-- A project with one operation, which reads a key. -/
def readerProject : Loaded := ⟨Worker.reader, [], "api.yaml"⟩

/-- A run that succeeds, by what it comes to. -/
lemma exists_eq_of_isOk {ε α : Type} {r : Except ε α × World} (h : r.1.isOk = true) :
    ∃ a, r = (.ok a, r.2) := by
  obtain ⟨result, w⟩ := r
  cases result with
  | error e => cases h
  | ok a => exact ⟨a, rfl⟩

/-- The project can be built in place of an earlier build, and the preview shows what stands there
then. -/
theorem agree_of_loaded_reader : ∃ preview files t,
    ((build readerProject ⟨"out", true, .staged⟩).run.runRefusing (fun _ => none) 0
        Build.earlier).1 = .ok preview ∧
      preview.report.result = .preview files ∧
      ((build readerProject ⟨"out", false, .staged⟩).run.run Build.earlier).2.standing "out"
        = some t ∧
      Build.Holds files t := by
  have hok : ((build readerProject ⟨"out", false, .staged⟩).run.run Build.earlier).1.isOk
      = true := by
    decide +kernel
  obtain ⟨built, hresult⟩ := exists_eq_of_isOk hok
  obtain ⟨checked, previewed, -, hpreview, -, hwritten⟩ :=
    agree_of_loaded readerProject "out" .staged
  obtain ⟨preview, files, t, rfl, hfiles, ht, hholds⟩ := hwritten _ "out" built _
    Build.isSound_earlier Build.endsIn_out Build.isClear_earlier
    (fun hslash => absurd hslash (by decide +kernel)) hresult
  obtain ⟨entries, hrun⟩ := hpreview (fun _ => none) Build.earlier
  exact ⟨preview, files, t, congrArg Prod.fst hrun, hfiles, ht, hholds⟩

/-- **A build in place may leave files that its preview does not show**, if a name that is missing
stands before a `..` on the way to the output: what stood there is kept. -/
theorem not_as_previewed_missingName : ¬ ∀ preview files built w' t,
    ((build readerProject ⟨"x/../out", true, .inPlace⟩).run.run Build.earlier).1 = .ok preview →
      preview.report.result = .preview files →
      (build readerProject ⟨"x/../out", false, .inPlace⟩).run.run Build.earlier = (.ok built, w') →
      w'.standing "x/../out" = some t → Build.Holds files t := by
  intro h
  have hcompile : (Compilation.ofLoaded readerProject).compile = .ok
      ⟨Worker.reader, true, some (Handler.ofApi Worker.reader.api),
        some (Route.table Worker.reader.api (Handler.ofApi Worker.reader.api)), []⟩ := rfl
  obtain ⟨files, hrender, hpasses, -⟩ := passes_of_compile hcompile
  obtain ⟨entries, hpreview⟩ := runRefusing_log_then (compileLog readerProject)
    (.ok (builtWith readerProject _ (.preview files)) : Except BuildError Built) (fun _ => none)
    Build.earlier
  have hrun : (build readerProject ⟨"x/../out", true, .inPlace⟩).run = _ :=
    run_preview hcompile hrender
  rw [← hrun, runRefusing_none] at hpreview
  have hok : ((build readerProject ⟨"x/../out", false, .inPlace⟩).run.run Build.earlier).1.isOk
      = true := by
    decide +kernel
  have hkept : ((((build readerProject ⟨"x/../out", false, .inPlace⟩).run.run
      Build.earlier).2.standing "x/../out").bind (·.label? ["old.js"]))
        = some (.file "old".toUTF8) := by
    decide +kernel
  obtain ⟨built, hresult⟩ := exists_eq_of_isOk hok
  obtain ⟨t, ht, hold⟩ := Option.bind_eq_some_iff.mp hkept
  have hholds := h _ files built _ t (congrArg Prod.fst hpreview) rfl hresult ht
  obtain ⟨f, hf, hway, -⟩ := (hholds.file _ _).mp hold
  have hpath := hpasses.paths ▸ List.mem_map_of_mem (f := OutputFile.path) hf
  have hother : ∀ p ∈ Worker.GlobalFile.all.map (fun file => (⟨file.name⟩ : Path)) ++
      ["read"].map Worker.target.handlerPath, p.way ≠ ["old.js"] := by
    decide +kernel
  exact hother _ hpath hway

end Project

end WorkerGen
