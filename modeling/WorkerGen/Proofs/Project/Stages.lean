import Mathlib
import WorkerGen.Proofs.Build.Published
import WorkerGen.Proofs.Host.Children
import WorkerGen.Proofs.Project.Agreement

/-!
# The stages of a build

What has gone before a build that has succeeded, whatever is refused on the way.  Loading only looks
at the project, and finds the environment file in the files as they were (`exists_of_load`).  A
build has succeeded just if the project compiles and its files are rendered and written
(`ends_build`, `exists_of_build`).  Neither starts a child process.

`Emitting` is a run of a build up to where its files have been written.  A command that goes on from
there can take from it what the files are, and that they stand at the output in the world it has
come to (`Emitting.hasBuild`).
-/

namespace WorkerGen.Project

open Script

/-! ## Loading

All that loading asks for is whether there are files and what is in them. -/

section
variable (path : Path)

lemma looks_readFile : (readFile path).run.Asks Request.IsLook :=
  (looks_readText path).bind fun result => by cases result <;> exact asks_done _

lemma looks_loadManifest : (loadManifest path).run.Asks Request.IsLook := by
  refine Asks.liftThen (looks_isKind _ path) fun there => ?_
  cases there with
  | false => exact Asks.liftThen (looks_log _) fun _ => asks_done _
  | true =>
      refine Asks.liftThen (looks_log _) fun _ => (looks_readFile path).andThen fun text => ?_
      cases Manifest.parse text <;> exact asks_done _

lemma looks_loadApi : (loadApi path).run.Asks Request.IsLook := by
  refine Asks.liftThen (looks_log _) fun _ => (looks_readFile path).andThen fun text => ?_
  cases Api.parse text <;> exact asks_done _

lemma looks_readEnv : (readEnv path).Asks Request.IsLook := by
  refine (looks_isThere path).bind fun there => ?_
  cases there with
  | false => exact asks_done _
  | true => exact (looks_readText path).bind fun text => by cases text <;> exact asks_done _

lemma looks_loadEnv : (loadEnv path).Asks Request.IsLook := by
  refine (looks_readEnv path).bind ?_
  rintro (e | _ | file)
  · exact (looks_log _).bind fun _ => asks_done _
  · exact asks_done _
  · exact (looks_log _).bind fun _ => asks_done _

end

/-- **Loading only looks at a project.** -/
theorem looks_load (p : Project) : p.load.run.Asks Request.IsLook := by
  refine Asks.liftThen (looks_isKind _ _) fun there => ?_
  cases there with
  | false => exact asks_done _
  | true =>
      refine (looks_loadManifest _).andThen ?_
      rintro ⟨manifest, warnings⟩
      exact (looks_loadApi _).andThen fun api => (looks_loadEnv _).liftThen fun _ => asks_done _

section
variable {refuses : ℕ → Option IoFault} {m m' : RunState}

/-- **The environment of a project that has been loaded** is that of the command, with what the
environment file sets instead. -/
theorem exists_of_load {p : Project} {l : Loaded} (h : p.load.run.ends refuses m = (.ok l, m')) :
    ∃ overrides warnings before after, m.world.SameFiles before.world ∧
      (loadEnv (p.root.join p.envFile)).ends refuses before = ((overrides, warnings), after) ∧
        l.config.env = p.ambient.union overrides := by
  obtain ⟨there, m₁, hthere, h⟩ := exists_of_ends_liftThen h
  cases there with
  | false => cases h
  | true =>
      obtain ⟨⟨manifest, first⟩, m₂, hmanifest, h⟩ := exists_of_ends_andThen h
      obtain ⟨api, m₃, hapi, h⟩ := exists_of_ends_andThen h
      obtain ⟨⟨overrides, second⟩, m₄, henv, h⟩ := exists_of_ends_liftThen h
      cases h
      refine ⟨overrides, second, m₃, _, ?_, henv, rfl⟩
      exact ((sameFiles_of_looks (looks_isKind _ _) hthere).trans
        (sameFiles_of_looks (looks_loadManifest _) hmanifest)).trans
          (sameFiles_of_looks (looks_loadApi _) hapi)

/-! ## Building

A build is taken apart at its two stages.  If both have succeeded the rest only looks, so that the
files are as the second has left them. -/

/-- What follows the writing of a worker only looks. -/
lemma looks_report (t : Target) (output : Path) (files : List OutputFile) (handlers : List Handler)
    (result : Except WriteError Unit) :
    (Build.report t output files handlers result).Asks Request.IsLook := by
  cases result with
  | error e => exact asks_done _
  | ok u => exact (looks_log _).bind fun _ => asks_done _

/-- **Building a project starts no child process.** -/
theorem quiet_build (l : Loaded) (output : Path) (strategy : WriteStrategy) :
    (build l ⟨output, false, strategy⟩).run.Quiet := by
  cases hcompile : (Compilation.ofLoaded l).compile with
  | error e =>
      rw [run_build_of_error hcompile]
      exact (looks_log _).quiet.bind fun _ => asks_done _
  | ok c =>
      obtain ⟨files, hrender, -⟩ := passes_of_compile hcompile
      rw [run_build hcompile, Build.run_emit hrender]
      refine (looks_log _).quiet.bind fun _ => Asks.bind ?_ fun _ => asks_done _
      exact (Build.quiet_write strategy output files).bind fun result =>
        (looks_report _ _ _ _ result).quiet

/-- A run of the pipeline on a project that has been loaded, and of the writing of its files, in
which both have succeeded. -/
structure Emitting (refuses : ℕ → Option IoFault) (l : Loaded) (output : Path) (m : RunState) where
  compilation : Compilation
  files : List OutputFile
  /-- Where the pipeline has ended. -/
  compiled : RunState
  /-- Where the files have been written. -/
  written : RunState
  compiles : (Compilation.ofLoaded l).compile = .ok compilation
  logs : (log (compileLog l)).ends refuses m = ((), compiled)
  renders : Worker.target.render compilation.config (compilation.routes.getD [])
    (compilation.handlers.getD []) = .ok files
  writes : (Build.write .staged output files).run.ends refuses compiled = (.ok (), written)

variable {l : Loaded} {output : Path}

/-- A build in which both have succeeded has succeeded. -/
lemma Emitting.ends_build (e : Emitting refuses l output m) : ∃ built after,
    (build l ⟨output, false, .staged⟩).run.ends refuses m = (.ok built, after) ∧
      built.config = e.compilation.config ∧ e.written.world.SameFiles after.world := by
  have hreport : ∃ emitted after, (Build.report Worker.target output e.files
      (e.compilation.handlers.getD []) (.ok ())).ends refuses e.written = (.ok emitted, after) := by
    rw [Build.report, ends_bind]
    exact ⟨_, _, rfl⟩
  obtain ⟨emitted, after, hreport⟩ := hreport
  refine ⟨builtWith l e.compilation (.written emitted), after, ?_, rfl,
    sameFiles_of_looks (looks_report _ _ _ _ _) hreport⟩
  rw [run_build e.compiles, Build.run_emit e.renders, ends_bind, e.logs, ends_bind, ends_bind,
    e.writes, hreport]
  rfl

/-- In a build that has succeeded, both have. -/
lemma exists_of_build {built : Built}
    (h : (build l ⟨output, false, .staged⟩).run.ends refuses m = (.ok built, m')) :
    Nonempty (Emitting refuses l output m) := by
  cases hcompile : (Compilation.ofLoaded l).compile with
  | error e =>
      rw [run_build_of_error hcompile, ends_bind] at h
      cases h
  | ok c =>
      obtain ⟨files, hrender, -⟩ := passes_of_compile hcompile
      rw [run_build hcompile, Build.run_emit hrender, ends_bind, ends_bind, ends_bind] at h
      cases hwrite : (Build.write .staged output files).run.ends refuses
          ((log (compileLog l)).ends refuses m).2 with
      | mk result written =>
          rw [hwrite] at h
          rcases result with (e | u)
          · cases h
          · exact ⟨c, files, _, written, hcompile, rfl, hrender, hwrite⟩

/-- **What has been written stands at the output.** -/
theorem Emitting.hasBuild (e : Emitting refuses l output m) (hm : m.world.IsSound) :
    e.written.world.HasBuild output e.files := by
  obtain ⟨c, files, ⟨w, index⟩, written, hcompile, hlogs, hrender, hwrites⟩ := e
  obtain ⟨files', hrender', -, hinside⟩ := passes_of_compile hcompile
  obtain rfl : files' = files := Except.ok.inj (hrender'.symm.trans hrender)
  have hsound : w.IsSound := (sameFiles_of_looks (looks_log _) hlogs).isSound hm
  have hrun : (Build.write .staged output files').run.runRefusing refuses index w
      = (.ok (), written.world) := by
    rw [runRefusing_eq_ends, hwrites]
  have hbuild := Build.hasBuild_of_written hsound hinside (congrArg Prod.fst hrun)
  rwa [hrun] at hbuild

end

end WorkerGen.Project
